import EncointerWorker.Primitives
import EncointerWorker.Fixed
import EncointerWorker.Stf.Execute
import EncointerWorker.Stf.Run
import EncointerWorker.Client.Balance
import EncointerWorker.Client.Meetup
import EncointerWorker.Client.Attendance
import EncointerWorker.Client.Calls
import EncointerWorker.Stf.Resync
